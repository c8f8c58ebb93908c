import Underwriting.Run.Stages
import Underwriting.Service.Records

/-!
# The lives of the server

The checkpoint file outlives the process. A `Life` is one process over it: the requests it
serves, and the request in the middle of which it is killed, if it is. The next process starts
with what has been stored, and with breakers, counters and a log of its own; its settings and
its chat model may be others.

`leave` is what a call leaves when at most `j` of its nodes are executed. In a world that no
kill has led to it does what `exec` does: `leave_eq_exec`.
-/

namespace Underwriting

open Python ApplicationService

/-- What the checkpoint file holds. -/
abbrev Store : Type := String → Option Thread

/-- The world that a call leaves whose process is killed after at most `j` nodes. -/
def leave (env : Env) (j : ℕ) (w : World) : Call → World
  | .start a =>
      let k : Submission := ⟨a, s!"corr_{env.uuid w.runtime.uuids}"⟩
      let result := (graph env).invoke j (initialState a k.correlationId)
        (storedValues w a.applicationId) (w.runtime.launched k)
      ⟨Function.update w.store a.applicationId (some result.2.1), result.2.2⟩
  | .resolve id res =>
      match w.store id with
      | none => w
      | some t =>
          if t.next.isNone then w
          else
            let result := (graph env).deliver j res.modelDump t (w.runtime.resolving id res)
            ⟨Function.update w.store id (some result.2.1), result.2.2⟩
  | .get _ | .rationale _ => w

section Leave

variable {env : Env} {j : ℕ} {w : World} {id : String} {res : EscalationResolution} {t : Thread}

theorem store_leave_start (a : LoanApplication) :
    (leave env j w (.start a)).store = Function.update w.store a.applicationId
      (some ((graph env).invoke j (initialState a s!"corr_{env.uuid w.runtime.uuids}")
        (storedValues w a.applicationId)
        (w.runtime.launched ⟨a, s!"corr_{env.uuid w.runtime.uuids}"⟩)).2.1) := rfl

theorem leave_resolve_of_unknown (hstore : w.store id = none) :
    leave env j w (.resolve id res) = w := by
  rw [leave, hstore]

theorem leave_resolve_of_finished (hstore : w.store id = some t) (hnext : t.next = none) :
    leave env j w (.resolve id res) = w := by
  simp only [leave, hstore, hnext, Option.isNone_none, if_true]

theorem leave_resolve_of_due {n : Node} (hstore : w.store id = some t) (hnext : t.next = some n) :
    leave env j w (.resolve id res) =
      ⟨Function.update w.store id
          (some ((graph env).deliver j res.modelDump t (w.runtime.resolving id res)).2.1),
        ((graph env).deliver j res.modelDump t (w.runtime.resolving id res)).2.2⟩ := by
  simp only [leave, hstore, hnext, Option.isNone_some, Bool.false_eq_true, if_false]

theorem store_leave_resolve {n : Node} (hstore : w.store id = some t) (hnext : t.next = some n) :
    (leave env j w (.resolve id res)).store = Function.update w.store id
      (some ((graph env).deliver j res.modelDump t (w.runtime.resolving id res)).2.1) := by
  rw [leave_resolve_of_due hstore hnext]

/-- What the nodes keep of the process is kept by a call, complete or not. -/
theorem Lasting.leave {I : Runtime → Prop} (h : Lasting env I) (hw : I w.runtime) (j : ℕ)
    (c : Call) : I (leave env j w c).runtime := by
  cases c with
  | get id => exact hw
  | rationale id => exact hw
  | start a =>
      let k : Submission := ⟨a, s!"corr_{env.uuid w.runtime.uuids}"⟩
      have hlaunched : I (w.runtime.launched k) :=
        h.emit _ (plain_of_keys ["application_id", "correlation_id"] rfl (by decide)) (h.uuids hw)
      exact h.maintains.invoke j hlaunched
  | resolve id res =>
      cases hstore : w.store id with
      | none =>
          rw [leave_resolve_of_unknown hstore]
          exact hw
      | some t =>
          cases hnext : t.next with
          | none =>
              rw [leave_resolve_of_finished hstore hnext]
              exact hw
          | some n =>
              have hresolving : I (w.runtime.resolving id res) :=
                h.emit _ (plain_of_keys ["application_id", "reviewer_id"] rfl (by decide)) hw
              rw [leave_resolve_of_due hstore hnext]
              exact h.maintains.deliver j hresolving trivial

theorem Lasting.leave_calls {I : Runtime → Prop} (h : Lasting env I) (hw : I w.runtime) (j : ℕ)
    (calls : List Call) : I (calls.foldl (Underwriting.leave env j) w).runtime := by
  induction calls generalizing w with
  | nil => exact hw
  | cons c calls ih => exact ih (h.leave hw j c)

end Leave

/-- Every application that the calls submit is one of `A`. -/
def SubmitsOnly (A : Set LoanApplication) (calls : List Call) : Prop :=
  ∀ a, .start a ∈ calls → a ∈ A

theorem submitsOnly_append {A : Set LoanApplication} {calls more : List Call} :
    SubmitsOnly A (calls ++ more) ↔ SubmitsOnly A calls ∧ SubmitsOnly A more := by
  simp only [SubmitsOnly, List.mem_append, or_imp, forall_and]

theorem submitsOnly_cons {A : Set LoanApplication} {c : Call} {calls : List Call} :
    SubmitsOnly A (c :: calls) ↔ SubmitsOnly A [c] ∧ SubmitsOnly A calls :=
  @submitsOnly_append A [c] calls

/-- One process over the checkpoint file. -/
structure Life where
  env : Env
  calls : List Call
  /-- The call that the process does not survive, and how many of its nodes are executed. -/
  killed : Option (Call × ℕ)

namespace Life

variable (l : Life)

/-- The calls with the number of nodes that each may execute. -/
def moves : List (Call × ℕ) :=
  l.calls.map (·, recursionLimit) ++ l.killed.toList.map fun m => (m.1, min m.2 recursionLimit)

/-- What it was asked for, the call that it does not survive included. -/
def asked : List Call := l.calls ++ l.killed.toList.map Prod.fst

theorem map_fst_moves : l.moves.map Prod.fst = l.asked := by
  simp [moves, asked, Function.comp_def]

/-- The process when it ends, over what it has found stored. -/
def last (store : Store) : World :=
  l.moves.foldl (fun w m => leave l.env m.2 w m.1) ⟨store, .init⟩

end Life

/-- What is stored after the given lives of the server. -/
def survivors (lives : List Life) : Store :=
  lives.foldl (fun store l => (l.last store).store) fun _ => none

theorem Life.last_of_not_killed (env : Env) (calls : List Call) (store : Store) :
    (⟨env, calls, none⟩ : Life).last store =
      calls.foldl (leave env recursionLimit) ⟨store, .init⟩ := by
  simp only [last, moves, Option.toList_none, List.map_nil, List.append_nil, List.foldl_map]

theorem survivors_snoc (lives : List Life) (l : Life) :
    survivors (lives ++ [l]) = (l.last (survivors lives)).store := by
  rw [survivors, List.foldl_append]
  rfl

/-- What its calls keep, complete or not, is kept by a life. -/
theorem Life.induction {I : World → Prop} (l : Life)
    (hstep : ∀ c ∈ l.asked, ∀ j w, I w → I (leave l.env j w c)) {store : Store}
    (hinit : I ⟨store, .init⟩) : I (l.last store) := by
  have hmoves (moves : List (Call × ℕ)) (hasked : ∀ m ∈ moves, m.1 ∈ l.asked) (w : World)
      (hw : I w) : I (moves.foldl (fun w m => leave l.env m.2 w m.1) w) := by
    induction moves generalizing w with
    | nil => exact hw
    | cons m moves ih =>
        have hm := hasked m List.mem_cons_self
        exact ih (fun m' hm' => hasked m' (List.mem_cons_of_mem _ hm')) _ (hstep _ hm _ _ hw)
  refine hmoves l.moves (fun m hm => ?_) _ hinit
  rw [← l.map_fst_moves]
  exact List.mem_map_of_mem hm

/-- And from life to life. -/
theorem survivors_induction {I : Store → Prop} (lives : List Life) (hinit : I fun _ => none)
    (hstep : ∀ l ∈ lives, ∀ c ∈ l.asked, ∀ j w, I w.store → I (leave l.env j w c).store) :
    I (survivors lives) := by
  induction lives using List.reverseRecOn with
  | nil => exact hinit
  | append_singleton lives l ih =>
      have hbefore : I (survivors lives) :=
        ih fun l' hl' => hstep l' (List.mem_append_left _ hl')
      rw [survivors_snoc]
      exact l.induction (I := fun w => I w.store) (hstep l (by simp)) hbefore

/-! ## Without kills -/

theorem runNode_congr {env : Env} {n : Node} (h : n ≠ .humanEscalation) (v v' : Option Json)
    (s : UnderwritingState) : runNode env n v s = runNode env n v' s := by
  cases n <;> first | rfl | exact absurd rfl h

/-- A complete call does the same in both models unless the escalation is due and has not
interrupted. -/
theorem leave_eq_exec {env : Env} {w : World} {c : Call}
    (h : ∀ t, w.store c.applicationId = some t → t.next = some .humanEscalation →
      t.interrupts ≠ []) :
    leave env recursionLimit w c = exec env w c := by
  cases c with
  | start a => rw [exec_start, leave]
  | get id => rw [exec_get, leave]
  | rationale id => rw [exec_rationale, leave]
  | resolve id res =>
      cases hstore : w.store id with
      | none => rw [exec_resolve_of_unknown res hstore, leave_resolve_of_unknown hstore]
      | some t =>
          cases hnext : t.next with
          | none => rw [exec_resolve_of_finished res hstore hnext,
              leave_resolve_of_finished hstore hnext]
          | some n =>
              have hdeliver : (graph env).deliver recursionLimit res.modelDump t
                  (w.runtime.resolving id res) = (graph env).resume recursionLimit res.modelDump t
                  (w.runtime.resolving id res) := by
                apply DurableGraph.Graph.deliver_eq_resume
                intro m hm hinterrupts r
                have hm' : m ≠ .humanEscalation := by
                  rintro rfl
                  exact h t hstore hm hinterrupts
                exact congrFun (runNode_congr hm' _ _ _) r
              rw [exec, resolveEscalation_of_due res hstore (by rw [hnext]; rfl),
                snd_onThread_getApplication, leave_resolve_of_due hstore hnext, hdeliver]

/-- In the worlds that complete calls lead to, the two models agree. -/
theorem Sound.leave_eq_exec {env : Env} {B : UnderwritingState → Prop} {w : World}
    (hw : Sound env B w) (c : Call) : leave env recursionLimit w c = Underwriting.exec env w c := by
  apply Underwriting.leave_eq_exec
  intro t hstore hnext
  obtain ⟨R, p, -, -, rfl⟩ := hw.threads _ _ hstore
  cases p with
  | awaiting x h => exact List.cons_ne_nil _ _
  | extracting => cases hnext
  | scoring x h => cases hnext
  | explaining c => cases hnext
  | completed c rationale => cases hnext

/-- A process that is not killed stores what the service stores. -/
theorem survivors_singleton (env : Env) (calls : List Call) :
    survivors [⟨env, calls, none⟩] = (run env calls .init).store := by
  have hserved (calls : List Call) :
      calls.foldl (fun w c => leave env recursionLimit w c) .init = run env calls .init := by
    induction calls using List.reverseRecOn with
    | nil => rfl
    | append_singleton calls c ih =>
        rw [List.foldl_append, ih, run_append]
        exact (sound_run env calls).leave_eq_exec c
  have hlast : (⟨env, calls, none⟩ : Life).last (fun _ => none) =
      calls.foldl (fun w c => leave env recursionLimit w c) .init := by
    simp only [Life.last, Life.moves, Option.toList_none, List.map_nil, List.append_nil,
      List.foldl_map]
    rfl
  rw [survivors, List.foldl_cons, List.foldl_nil, hlast, hserved]

/-! ## What is stored of a case -/

/-- The thread under an id belongs to a case of that id. `B` says what was submitted and over
which values the case was started. -/
def Keeps (host : Env) (E : Set Env) (B : LoanApplication → UnderwritingState → Prop)
    (id : String) (store : Store) : Prop :=
  ∀ t, store id = some t → ∃ R : Run,
    R.application.applicationId = id ∧ B R.application R.base ∧ R.Kept host E t

section Kept

variable {env host : Env} {E : Set Env} {B : LoanApplication → UnderwritingState → Prop}
  {id : String}

/-- The resolution in the values of a case is one that was dumped. -/
theorem Run.Kept.exists_resolution {R : Run} {t : Thread} (h : R.Kept host E t) :
    ∃ res : Option EscalationResolution,
      t.values.escalationResolution = res.map EscalationResolution.modelDump := by
  obtain ⟨st, -, hat⟩ := h
  rw [hat.values]
  cases st with
  | evaluated f => exact ⟨_, Run.filed_escalationResolution f⟩
  | explained f hopen rationale => exact ⟨_, Run.filed_escalationResolution f⟩
  | completed f hopen rationale => exact ⟨_, Run.filed_escalationResolution f⟩
  | submitted => exact ⟨_, R.base_resolution⟩
  | received => exact ⟨_, R.base_resolution⟩
  | extracted x => exact ⟨_, R.base_resolution⟩
  | scored x risk => exact ⟨_, R.base_resolution⟩

/-- A submission begins a run over what is stored. -/
theorem Keeps.exists_run {w : World} (h : Keeps host E B id w.store) (k : Submission) :
    ∃ R : Run, R.submission = k ∧ R.base = storedValues w id := by
  have hstale : ∃ res : Option EscalationResolution,
      (storedValues w id).escalationResolution = res.map EscalationResolution.modelDump := by
    cases hstore : w.store id with
    | none => exact ⟨none, by rw [storedValues, hstore]; rfl⟩
    | some t =>
        obtain ⟨R, -, -, hkept⟩ := h t hstore
        rw [storedValues_of_store hstore]
        exact hkept.exists_resolution
  obtain ⟨stale, hstale⟩ := hstale
  exact ⟨⟨k, storedValues w id, stale, hstale⟩, rfl, rfl⟩

theorem Keeps.invoke (henv : env ∈ E) (hunicode : host.unicode = env.unicode) {w : World}
    (h : Keeps host E B id w.store) (k : Submission) (hk : k.application.applicationId = id)
    (hB : B k.application (storedValues w id)) (j : ℕ) (r : Runtime) :
    ∃ R : Run, R.application.applicationId = id ∧ B R.application R.base ∧ R.Kept host E
      ((graph env).invoke j (initialState k.application k.correlationId)
        (storedValues w id) r).2.1 := by
  obtain ⟨R, rfl, hbase⟩ := h.exists_run k
  rw [← hbase] at hB ⊢
  have hinput : R.Kept host E ⟨R.base.merge
      (initialState R.application R.submission.correlationId), some .intake, []⟩ :=
    ⟨.submitted, .refl, rfl, rfl, .inl rfl⟩
  exact ⟨R, hk, hB, (Run.maintains_kept henv hunicode).invoke j hinput⟩

/-- A call keeps the case under an id, complete or not. -/
theorem Keeps.leave (henv : env ∈ E) (hunicode : host.unicode = env.unicode) {w : World}
    (h : Keeps host E B id w.store) (j : ℕ) (c : Call)
    (hB : ∀ a, c = .start a → a.applicationId = id → B a (storedValues w id)) :
    Keeps host E B id (leave env j w c).store := by
  -- A call about another id does not touch the thread.
  have hother {id' : String} (t : Option Thread) (hne : id ≠ id') :
      Keeps host E B id (Function.update w.store id' t) := by
    intro t' ht'
    rw [Function.update_of_ne hne] at ht'
    exact h t' ht'
  cases c with
  | get id' => exact h
  | rationale id' => exact h
  | start a =>
      rw [store_leave_start]
      by_cases hid : a.applicationId = id
      · intro t ht
        rw [hid, Function.update_self, Option.some.injEq] at ht
        rw [← ht]
        exact h.invoke henv hunicode ⟨a, s!"corr_{env.uuid w.runtime.uuids}"⟩ hid (hB a rfl hid) j _
      · exact hother _ (Ne.symm hid)
  | resolve id' res =>
      cases hstore : w.store id' with
      | none =>
          rw [leave_resolve_of_unknown hstore]
          exact h
      | some t =>
          cases hnext : t.next with
          | none =>
              rw [leave_resolve_of_finished hstore hnext]
              exact h
          | some n =>
              rw [store_leave_resolve hstore hnext]
              by_cases hid : id = id'
              · intro t' ht'
                rw [hid, Function.update_self, Option.some.injEq] at ht'
                rw [← ht']
                obtain ⟨R, hR, hbase, hkept⟩ := h t (hid ▸ hstore)
                exact ⟨R, hR, hbase, (Run.maintains_kept henv hunicode).deliver j hkept ⟨res, rfl⟩⟩
              · exact hother _ hid

end Kept

/-! ## Through all lives -/

/-- The environments that the server has lived in. -/
def environments (lives : List Life) : Set Env := {env | ∃ l ∈ lives, l.env = env}

theorem mem_environments {lives : List Life} {l : Life} (h : l ∈ lives) :
    l.env ∈ environments lives := ⟨l, h, rfl⟩

/-- The ids that a life of the server has been asked to start, killed or not. -/
def Life.submittedIds (l : Life) : List String :=
  Underwriting.submittedIds l.asked

section Lives

variable {host : Env} {id : String}

/-- Whatever the server has lived through, a stored thread belongs to the case of a submission. -/
theorem keeps_survivors {E : Set Env} {A : Set LoanApplication} (lives : List Life)
    (henv : ∀ l ∈ lives, l.env ∈ E) (hunicode : ∀ l ∈ lives, host.unicode = l.env.unicode)
    (hsubmits : ∀ l ∈ lives, SubmitsOnly A l.asked) :
    Keeps host E (fun a _ => a ∈ A) id (survivors lives) := by
  apply survivors_induction
  · intro t ht
    cases ht
  · intro l hl c hc j w hw
    apply hw.leave (henv l hl) (hunicode l hl) j c
    rintro a rfl -
    exact hsubmits l hl a hc

/-! When an id is submitted once, its case was started over blank values. The submissions that
are still to come are counted down. -/

/-- At most one submission of the id is left, `n` of them, and none is on file as long as it is
to come. -/
structure Allows (host : Env) (E : Set Env) (A : Set LoanApplication) (id : String) (n : ℕ)
    (store : Store) : Prop where
  once : n ≤ 1
  keeps : Keeps host E (fun a v => a ∈ A ∧ v = .blank) id store
  fresh : n = 1 → store id = none

namespace Allows

variable {env : Env} {E : Set Env} {A : Set LoanApplication} {n : ℕ}

theorem leave (henv : env ∈ E) (hunicode : host.unicode = env.unicode) {w : World} {c : Call}
    (hc : SubmitsOnly A [c]) (h : Allows host E A id ((submittedIds [c]).count id + n) w.store)
    (j : ℕ) : Allows host E A id n (leave env j w c).store := by
  have hstart (a : LoanApplication) (hc : c = .start a) (ha : a.applicationId = id) :
      n = 0 ∧ w.store id = none := by
    have hcount : (submittedIds [c]).count id = 1 := by simp [hc, submittedIds, ha]
    have honce := h.once
    rw [hcount] at honce
    exact ⟨by omega, h.fresh (by omega)⟩
  refine ⟨(Nat.le_add_left _ _).trans h.once, ?_, fun hn => ?_⟩
  · apply h.keeps.leave henv hunicode j c
    intro a hstarts ha
    refine ⟨hc a (by rw [hstarts]; exact List.mem_cons_self), ?_⟩
    rw [storedValues, (hstart a hstarts ha).2]
    rfl
  · have hnone : w.store id = none := h.fresh (le_antisymm h.once (by omega))
    cases c with
    | get id' => exact hnone
    | rationale id' => exact hnone
    | start a =>
        have hne : id ≠ a.applicationId := by
          rintro rfl
          exact absurd (hstart a rfl rfl).1 (by omega)
        rw [store_leave_start, Function.update_of_ne hne]
        exact hnone
    | resolve id' res =>
        cases hstore : w.store id' with
        | none =>
            rw [leave_resolve_of_unknown hstore]
            exact hnone
        | some t =>
            cases hnext : t.next with
            | none =>
                rw [leave_resolve_of_finished hstore hnext]
                exact hnone
            | some m =>
                have hne : id ≠ id' := by
                  rintro rfl
                  rw [hnone] at hstore
                  cases hstore
                rw [store_leave_resolve hstore hnext, Function.update_of_ne hne]
                exact hnone

theorem moves (henv : env ∈ E) (hunicode : host.unicode = env.unicode) (moves : List (Call × ℕ))
    (hmoves : SubmitsOnly A (moves.map Prod.fst)) {w : World}
    (h : Allows host E A id ((submittedIds (moves.map Prod.fst)).count id + n) w.store) :
    Allows host E A id n (moves.foldl (fun w m => Underwriting.leave env m.2 w m.1) w).store := by
  induction moves generalizing w with
  | nil =>
      rw [List.map_nil, submittedIds, List.filterMap_nil, List.count_nil, Nat.zero_add] at h
      exact h
  | cons m moves ih =>
      rw [List.map_cons, ← List.singleton_append, submittedIds_append, List.count_append,
        Nat.add_assoc] at h
      rw [List.map_cons] at hmoves
      obtain ⟨hm, hmoves⟩ := submitsOnly_cons.1 hmoves
      exact ih hmoves (h.leave henv hunicode hm m.2)

theorem lives (lives : List Life) (henv : ∀ l ∈ lives, l.env ∈ E)
    (hunicode : ∀ l ∈ lives, host.unicode = l.env.unicode)
    (hsubmits : ∀ l ∈ lives, SubmitsOnly A l.asked) {store : Store}
    (h : Allows host E A id ((lives.flatMap Life.submittedIds).count id + n) store) :
    Allows host E A id n (lives.foldl (fun store l => (l.last store).store) store) := by
  induction lives generalizing store with
  | nil =>
      rw [List.flatMap_nil, List.count_nil, Nat.zero_add] at h
      exact h
  | cons l lives ih =>
      have hsubmitted : l.submittedIds = submittedIds (l.moves.map Prod.fst) := by
        rw [l.map_fst_moves]
        rfl
      rw [List.flatMap_cons, List.count_append, Nat.add_assoc, hsubmitted] at h
      exact ih (fun l' hl' => henv l' (List.mem_cons_of_mem _ hl'))
        (fun l' hl' => hunicode l' (List.mem_cons_of_mem _ hl'))
        (fun l' hl' => hsubmits l' (List.mem_cons_of_mem _ hl'))
        (h.moves (henv l List.mem_cons_self) (hunicode l List.mem_cons_self) l.moves
          (l.map_fst_moves.symm ▸ hsubmits l List.mem_cons_self))

end Allows

/-- The applications that the server has been asked to start. -/
def started (lives : List Life) : Set LoanApplication := {a | ∃ l ∈ lives, .start a ∈ l.asked}

theorem keeps_survivors_once (lives : List Life)
    (hunicode : ∀ l ∈ lives, host.unicode = l.env.unicode)
    (honce : (lives.flatMap Life.submittedIds).count id ≤ 1) :
    Keeps host (environments lives) (fun a v => a ∈ started lives ∧ v = .blank) id
      (survivors lives) := by
  have hinit : Allows host (environments lives) (started lives) id
      ((lives.flatMap Life.submittedIds).count id + 0) fun _ => none := by
    refine ⟨honce, ?_, fun _ => rfl⟩
    intro t ht
    cases ht
  have hsubmits : ∀ l ∈ lives, SubmitsOnly (started lives) l.asked :=
    fun l hl a ha => ⟨l, hl, ha⟩
  exact (hinit.lives lives (fun _ hl => mem_environments hl) hunicode hsubmits).keeps

end Lives

end Underwriting
