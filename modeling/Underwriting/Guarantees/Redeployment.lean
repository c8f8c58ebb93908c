import Underwriting.Run.Lives

/-!
# Settings after the policy check

The thresholds in the settings are used by the risk scoring and by nothing after it. So a case
whose policy has been checked is finished by what is on file: a process under other settings does
to it, call by call, what a process under the old settings would do.
-/

namespace Underwriting

open Python

/-- The environment under other settings. -/
def Env.reconfigured (env : Env) (settings : Settings) : Env := { env with settings := settings }

/-- The nodes behind the policy check. -/
def Node.PastPolicy (n : Node) : Prop :=
  n = .humanEscalation ∨ n = .explainabilityAgent ∨ n = .decisionOutput

section Reconfigured

variable (env : Env) (settings : Settings)

/-- Past the policy check the graph does not depend on the settings. -/
theorem agreeFrom_reconfigured :
    (graph (env.reconfigured settings)).AgreeFrom (graph env) Node.PastPolicy where
  node := by
    rintro n (rfl | rfl | rfl) <;> rfl
  merge := rfl
  edge := rfl
  payload := rfl
  recursionError := rfl
  closed := by
    rintro n m s (rfl | rfl | rfl) hedge
    · cases hedge
      exact .inr (.inl rfl)
    · cases hedge
      exact .inr (.inr rfl)
    · cases hedge

end Reconfigured

/-- What is stored under the id is past the policy check. -/
def IsPastPolicy (id : String) (store : Store) : Prop :=
  ∀ t, store id = some t → ∀ n ∈ t.next, n.PastPolicy

section Calls

variable {env : Env} {settings : Settings} {j : ℕ} {w : World} {c : Call}

/-- A call about a case past the policy check does the same under other settings. -/
theorem leave_reconfigured (hno : submittedIds [c] = [])
    (hpast : IsPastPolicy c.applicationId w.store) :
    leave (env.reconfigured settings) j w c = leave env j w c := by
  cases c with
  | start a => cases hno
  | get id => rfl
  | rationale id => rfl
  | resolve id res =>
      cases hstore : w.store id with
      | none => rw [leave_resolve_of_unknown hstore, leave_resolve_of_unknown hstore]
      | some t =>
          cases hnext : t.next with
          | none => rw [leave_resolve_of_finished hstore hnext,
              leave_resolve_of_finished hstore hnext]
          | some n =>
              rw [leave_resolve_of_due hstore hnext, leave_resolve_of_due hstore hnext,
                (agreeFrom_reconfigured env settings).deliver j res.modelDump (hpast t hstore)]

/-- And it takes no case back before the check. -/
theorem isPastPolicy_leave {id : String} (hno : submittedIds [c] = [])
    (hpast : IsPastPolicy id w.store) : IsPastPolicy id (leave env j w c).store := by
  cases c with
  | start a => cases hno
  | get id' => exact hpast
  | rationale id' => exact hpast
  | resolve id' res =>
      cases hstore : w.store id' with
      | none =>
          rw [leave_resolve_of_unknown hstore]
          exact hpast
      | some t =>
          cases hnext : t.next with
          | none =>
              rw [leave_resolve_of_finished hstore hnext]
              exact hpast
          | some n =>
              rw [store_leave_resolve hstore hnext]
              intro t' ht'
              by_cases hid : id = id'
              · subst hid
                rw [Function.update_self, Option.some.injEq] at ht'
                rw [← ht', DurableGraph.Graph.deliver_of_next hnext]
                have hagree := agreeFrom_reconfigured env env.settings
                exact hagree.next_drive j (hpast t hstore n hnext)
              · rw [Function.update_of_ne hid] at ht'
                exact hpast t' ht'

theorem foldl_leave_reconfigured (moves : List (Call × ℕ))
    (hno : submittedIds (moves.map Prod.fst) = [])
    (hpast : ∀ m ∈ moves, IsPastPolicy m.1.applicationId w.store) :
    moves.foldl (fun w m => leave (env.reconfigured settings) m.2 w m.1) w =
      moves.foldl (fun w m => leave env m.2 w m.1) w := by
  induction moves generalizing w with
  | nil => rw [List.foldl_nil, List.foldl_nil]
  | cons m moves ih =>
      rw [List.map_cons, ← List.singleton_append, submittedIds_append,
        List.append_eq_nil_iff] at hno
      have hstep : leave (env.reconfigured settings) m.2 w m.1 = leave env m.2 w m.1 :=
        leave_reconfigured hno.1 (hpast m List.mem_cons_self)
      have hrest := ih (w := leave env m.2 w m.1) hno.2 fun m' hm' =>
        isPastPolicy_leave hno.1 (hpast m' (List.mem_cons_of_mem _ hm'))
      simp only [List.foldl_cons, hstep]
      exact hrest

end Calls

section Lives

variable {l : Life} {store : Store}

theorem submittedIds_singleton_of_mem {calls : List Call} (hno : submittedIds calls = []) {c : Call}
    (hc : c ∈ calls) : submittedIds [c] = [] := by
  obtain ⟨before, after, rfl⟩ := List.mem_iff_append.1 hc
  rw [← List.singleton_append, submittedIds_append, submittedIds_append,
    List.append_eq_nil_iff, List.append_eq_nil_iff] at hno
  exact hno.2.1

theorem isPastPolicy_last {id : String} (hno : l.submittedIds = [])
    (hpast : IsPastPolicy id store) : IsPastPolicy id (l.last store).store :=
  l.induction (I := fun w => IsPastPolicy id w.store)
    (fun _ hc _ _ hw => isPastPolicy_leave (submittedIds_singleton_of_mem hno hc) hw) hpast

/-- The process under other settings. -/
def Life.reconfigured (l : Life) (settings : Settings) : Life :=
  { l with env := l.env.reconfigured settings }

theorem last_reconfigured (settings : Settings) (hno : l.submittedIds = [])
    (hpast : ∀ c ∈ l.asked, IsPastPolicy c.applicationId store) :
    (l.reconfigured settings).last store = l.last store := by
  apply foldl_leave_reconfigured l.moves
  · rw [l.map_fst_moves]
    exact hno
  · intro m hm
    apply hpast
    rw [← l.map_fst_moves]
    exact List.mem_map_of_mem hm

end Lives

/-- The server may be redeployed under any settings, again and again: as long as it is asked for
cases past the policy check only, its processes leave what they would leave under the old settings,
also when they are killed. -/
theorem redeployment_keeps_cases (lives : List Life) (later : List (Life × Settings))
    (hno : ∀ p ∈ later, p.1.submittedIds = [])
    (hpast : ∀ p ∈ later, ∀ c ∈ p.1.asked, IsPastPolicy c.applicationId (survivors lives)) :
    survivors (lives ++ later.map fun p => p.1.reconfigured p.2) =
      survivors (lives ++ later.map Prod.fst) := by
  rw [survivors, survivors, List.foldl_append, List.foldl_append]
  change (later.map _).foldl _ (survivors lives) = (later.map _).foldl _ (survivors lives)
  generalize survivors lives = store at hpast
  induction later generalizing store with
  | nil => rw [List.map_nil, List.map_nil]
  | cons p later ih =>
      have hp := hno p List.mem_cons_self
      rw [List.map_cons, List.map_cons, List.foldl_cons, List.foldl_cons,
        last_reconfigured p.2 hp (hpast p List.mem_cons_self)]
      apply ih (fun p' hp' => hno p' (List.mem_cons_of_mem _ hp'))
      intro p' hp' c hc
      exact isPastPolicy_last hp (hpast p' (List.mem_cons_of_mem _ hp') c hc)

/-- A case that waits for its reviewer, while the thresholds are lowered to zero by a process that
is killed before it can explain the decision, and then raised by one that completes it. -/
theorem redeployment_keeps_cases_escalated :
    survivors ([⟨sampleEnv, [.start escalatedApplication], none⟩] ++
      [⟨sampleEnv.reconfigured ⟨0, 0, 0⟩, [], some (.resolve "app_1" sampleResolution, 1)⟩,
        ⟨sampleEnv.reconfigured ⟨1, 1, 1⟩, [.resolve "app_1" sampleResolution], none⟩]) =
    survivors ([⟨sampleEnv, [.start escalatedApplication], none⟩] ++
      [⟨sampleEnv, [], some (.resolve "app_1" sampleResolution, 1)⟩,
        ⟨sampleEnv, [.resolve "app_1" sampleResolution], none⟩]) := by
  refine redeployment_keeps_cases [⟨sampleEnv, [.start escalatedApplication], none⟩]
    [(⟨sampleEnv, [], some (.resolve "app_1" sampleResolution, 1)⟩, ⟨0, 0, 0⟩),
      (⟨sampleEnv, [.resolve "app_1" sampleResolution], none⟩, ⟨1, 1, 1⟩)] ?_ ?_
  · simp [Life.submittedIds, Life.asked, submittedIds]
  · have hstore := (run_start_awaits (replies_sample escalatedApplication) needsHuman_escalated).1
    rw [← survivors_singleton, show escalatedApplication.applicationId = "app_1" from rfl] at hstore
    have hwaiting : IsPastPolicy "app_1"
        (survivors [⟨sampleEnv, [.start escalatedApplication], none⟩]) := by
      intro t ht n hn
      cases hstore.symm.trans ht
      cases hn
      exact .inl rfl
    simpa [Life.asked, Call.applicationId] using hwaiting

end Underwriting
